import EthAgent.LinkAgent

/-!
The parameters `WanStatus` and `Upstream` of a row, which the row caches and
the state machine reads from the global record of the row's Name. A Set that
finds its value in the cache does not look at the record.
-/

set_option autoImplicit false

namespace EthAgent
open CString Packed Runs

/-- A value given to `EthRdkInterface_SetParamUlongValue` or `_SetParamBoolValue`. -/
inductive SetValue where
  | wanStatus (uValue : WanStatus)
  | upstream (bValue : Bool)
  deriving DecidableEq

def SetValue.InRow : SetValue → EthRow → Prop
  | .wanStatus uValue, row => row.wanStatus = uValue
  | .upstream bValue, row => row.upstream = bValue

def SetValue.InRecord : SetValue → PortRecord → Prop
  | .wanStatus uValue, record => record.wanStatus = uValue
  | .upstream bValue, record => record.upstream = bValue

def SetValue.write : SetValue → PortRecord → PortRecord
  | .wanStatus uValue, record => { record with wanStatus := uValue }
  | .upstream bValue, record => { record with upstream := bValue }

theorem SetValue.inRecord_write (v : SetValue) (record : PortRecord) :
    v.InRecord (v.write record) := by
  cases v <;> rfl

theorem SetValue.write_of_inRecord {v : SetValue} {record : PortRecord}
    (h : v.InRecord record) : v.write record = record := by
  cases v with
  | wanStatus uValue => subst h; rfl
  | upstream bValue => subst h; rfl

/-- The Sets of the two parameters return TRUE for every row, whatever the
functions they call return. -/
def acceptedSet (a : LinkAgent) : LinkEvent → Option (Nat × SetValue)
  | .setWanStatus ins uValue => (a.ethernet.row ins).map fun _ => (ins,.wanStatus uValue)
  | .setBool ins .upstream bValue _ =>
    (a.ethernet.row ins).map fun _ => (ins,.upstream bValue)
  | _ => none

def clientStep (p : Platform) (reads : Bool) (q : LinkAgent × Option (Nat × SetValue))
    (ev : LinkEvent) : LinkAgent × Option (Nat × SetValue) :=
  ((agentStep p reads q.1 ev).1,acceptedSet q.1 ev)

/-- The record with the Name of the row `ins`, as the state machine finds it. -/
def LinkAgent.rowRecord (a : LinkAgent) (ins : Nat) : Option PortRecord :=
  (a.ethernet.row ins).bind fun row =>
    cosaDmlEthPortGetCopyOfGlobalInfoForGivenIfName a.ethernet.ports (some row.name.text)

/-- The record of the row just set exists and holds the value. -/
def WrittenThrough (q : LinkAgent × Option (Nat × SetValue)) : Prop :=
  ∀ ins v, q.2 = some (ins,v) → ∃ record, q.1.rowRecord ins = some record ∧ v.InRecord record

/-- The record of the row exists, and the row does not cache the value unless
that record holds it. -/
def ReachesRecord (q : LinkAgent × Option (Nat × SetValue)) (ev : LinkEvent) : Prop :=
  ∀ ins v row, acceptedSet q.1 ev = some (ins,v) → q.1.ethernet.row ins = some row →
    ∃ record, q.1.rowRecord ins = some record ∧ (v.InRow row → v.InRecord record)

theorem row_modifyRow {a : LinkAgent} {ins : Nat} {row : EthRow} {f : EthRow → EthRow}
    (hrow : a.ethernet.row ins = some row)
    (hf : ∀ r, (f r).ulInstanceNumber = r.ulInstanceNumber) :
    (a.modifyRow ins f).ethernet.row ins = some (f row) := by
  have h := find_modifyRow hf a.ethernet.qEthList ins ins
  rw [if_pos rfl,show a.ethernet.qEthList.find? _ = some row from hrow] at h
  exact h

theorem rowRecord_of_row {a : LinkAgent} {ins : Nat} {row : EthRow}
    (h : a.ethernet.row ins = some row) :
    a.rowRecord ins = cosaDmlEthPortGetCopyOfGlobalInfoForGivenIfName a.ethernet.ports
      (some row.name.text) := by
  rw [LinkAgent.rowRecord,h,Option.bind_some]

theorem getCopy_setWanStatus (t : PortTable) (ifname : Text) (uValue : WanStatus) :
    cosaDmlEthPortGetCopyOfGlobalInfoForGivenIfName
        (cosaDmlEthPortSetWanStatus t (some ifname) uValue).2 (some ifname) =
      (cosaDmlEthPortGetCopyOfGlobalInfoForGivenIfName t (some ifname)).map
        (SetValue.wanStatus uValue).write := by
  unfold cosaDmlEthPortSetWanStatus
  cases hi : cosaDmlEthPortGetIndexFromIfName t (some ifname) with
  | none => simp [cosaDmlEthPortGetCopyOfGlobalInfoForGivenIfName,hi]
  | some i => exact getCopy_modifyRecord hi fun _ => rfl

theorem getCopy_setUpstream (a : LinkAgent) (ifname : Text) (bValue : Bool)
    (start : StartAnswers) :
    cosaDmlEthPortGetCopyOfGlobalInfoForGivenIfName
        (cosaDmlEthPortSetUpstream a (some ifname) bValue start).2.ethernet.ports
        (some ifname) =
      (cosaDmlEthPortGetCopyOfGlobalInfoForGivenIfName a.ethernet.ports (some ifname)).map
        (SetValue.upstream bValue).write := by
  unfold cosaDmlEthPortSetUpstream
  cases hi : cosaDmlEthPortGetIndexFromIfName a.ethernet.ports (some ifname) with
  | none => simp [cosaDmlEthPortGetCopyOfGlobalInfoForGivenIfName,hi]
  | some i =>
    have hcopy := getCopy_of_index hi
    cases hr : a.ethernet.ports.records[i]? with
    | none => simp [hcopy,hr]
    | some record =>
      by_cases hsame : record.upstream = bValue
      · have hwrite : (SetValue.upstream bValue).write record = record :=
          SetValue.write_of_inRecord hsame
        simp [hsame,hcopy,hr,hwrite]
      · have hwritten := getCopy_modifyRecord (f := (SetValue.upstream bValue).write) hi
          fun _ => rfl
        simp only [hr,hsame,if_false]
        cases bValue <;> exact hwritten

theorem setWanStatus_rowRecord {a : LinkAgent} {ins : Nat} {row : EthRow} (uValue : WanStatus)
    (hrow : a.ethernet.row ins = some row) :
    (ethRdkInterfaceSetParamUlongValue a ins uValue).rowRecord ins =
      if row.wanStatus = uValue then a.rowRecord ins
      else (a.rowRecord ins).map (SetValue.wanStatus uValue).write := by
  unfold ethRdkInterfaceSetParamUlongValue
  rw [hrow]
  by_cases hsame : row.wanStatus = uValue
  · simp [hsame]
  · have hne : uValue ≠ row.wanStatus := fun h => hsame h.symm
    let b := a.modifyRow ins fun r => { r with wanStatus := uValue }
    let t := (cosaDmlEthPortSetWanStatus b.ethernet.ports (some row.name.text) uValue).2
    have hset : (b.setPorts t).ethernet.row ins = some { row with wanStatus := uValue } :=
      row_modifyRow hrow fun _ => rfl
    simp only [hne,hsame,if_false,rowRecord_of_row hrow]
    rw [rowRecord_of_row hset]
    exact getCopy_setWanStatus b.ethernet.ports row.name.text uValue

theorem setUpstream_qEthList (a : LinkAgent) (ifname : Option Text) (bValue : Bool)
    (start : StartAnswers) :
    (cosaDmlEthPortSetUpstream a ifname bValue start).2.ethernet.qEthList =
      a.ethernet.qEthList := by
  unfold cosaDmlEthPortSetUpstream
  repeat' split
  all_goals rfl

theorem setUpstream_rowRecord {p : Platform} {a : LinkAgent} {ins : Nat} {row : EthRow}
    (bValue : Bool) (start : StartAnswers) (hrow : a.ethernet.row ins = some row) :
    (ethRdkInterfaceSetParamBoolValue p a ins .upstream bValue start).rowRecord ins =
      if row.upstream = bValue then a.rowRecord ins
      else (a.rowRecord ins).map (SetValue.upstream bValue).write := by
  unfold ethRdkInterfaceSetParamBoolValue
  rw [hrow]
  by_cases hsame : row.upstream = bValue
  · simp [hsame]
  · have hne : bValue ≠ row.upstream := fun h => hsame h.symm
    let b := a.modifyRow ins fun r => { r with upstream := bValue }
    have hset : (cosaDmlEthPortSetUpstream b (some row.name.text) bValue start).2.ethernet.row
        ins = some { row with upstream := bValue } := by
      rw [Ethernet.row,setUpstream_qEthList]
      exact row_modifyRow hrow fun _ => rfl
    simp only [hne,hsame,if_false,rowRecord_of_row hrow]
    rw [rowRecord_of_row hset]
    exact getCopy_setUpstream b row.name.text bValue start

theorem accepted_rowRecord (p : Platform) (reads : Bool) {a : LinkAgent} {ev : LinkEvent}
    {ins : Nat} {v : SetValue} {row : EthRow} (hset : acceptedSet a ev = some (ins,v))
    (hrow : a.ethernet.row ins = some row) :
    (v.InRow row → (agentStep p reads a ev).1.rowRecord ins = a.rowRecord ins) ∧
      (¬ v.InRow row →
        (agentStep p reads a ev).1.rowRecord ins = (a.rowRecord ins).map v.write) := by
  unfold acceptedSet at hset
  split at hset
  · obtain ⟨_,-,heq⟩ := Option.map_eq_some_iff.mp hset
    obtain ⟨rfl,rfl⟩ := Prod.mk.inj heq
    have h := setWanStatus_rowRecord ‹WanStatus› hrow
    exact ⟨fun hin => h.trans (if_pos hin),fun hin => h.trans (if_neg hin)⟩
  · obtain ⟨_,-,heq⟩ := Option.map_eq_some_iff.mp hset
    obtain ⟨rfl,rfl⟩ := Prod.mk.inj heq
    have h := setUpstream_rowRecord (p := p) ‹Bool› ‹StartAnswers› hrow
    exact ⟨fun hin => h.trans (if_pos hin),fun hin => h.trans (if_neg hin)⟩
  · exact absurd hset (by simp)

theorem exists_row_of_accepted {a : LinkAgent} {ev : LinkEvent} {ins : Nat} {v : SetValue}
    (hset : acceptedSet a ev = some (ins,v)) : ∃ row, a.ethernet.row ins = some row := by
  unfold acceptedSet at hset
  split at hset
  · obtain ⟨row,hrow,heq⟩ := Option.map_eq_some_iff.mp hset
    exact ⟨row,(Prod.mk.inj heq).1 ▸ hrow⟩
  · obtain ⟨row,hrow,heq⟩ := Option.map_eq_some_iff.mp hset
    exact ⟨row,(Prod.mk.inj heq).1 ▸ hrow⟩
  · exact absurd hset (by simp)

theorem writtenThrough_clientStep_iff (p : Platform) (reads : Bool)
    (q : LinkAgent × Option (Nat × SetValue)) (ev : LinkEvent) :
    WrittenThrough (clientStep p reads q ev) ↔ ReachesRecord q ev := by
  refine forall_congr' fun ins => forall_congr' fun v => ?_
  constructor
  · intro h row hset hrow
    obtain ⟨record,hrecord,hv⟩ := h hset
    obtain ⟨hcached,hwritten⟩ := accepted_rowRecord p reads hset hrow
    by_cases hin : v.InRow row
    · exact ⟨record,(hcached hin).symm.trans hrecord,fun _ => hv⟩
    · obtain ⟨old,hold,-⟩ := Option.map_eq_some_iff.mp ((hwritten hin).symm.trans hrecord)
      exact ⟨old,hold,fun h => absurd h hin⟩
  · intro h hset
    obtain ⟨row,hrow⟩ := exists_row_of_accepted hset
    obtain ⟨record,hrecord,hv⟩ := h row hset hrow
    obtain ⟨hcached,hwritten⟩ := accepted_rowRecord p reads hset hrow
    by_cases hin : v.InRow row
    · exact ⟨record,(hcached hin).trans hrecord,hv hin⟩
    · exact ⟨v.write record,by rw [clientStep,hwritten hin,hrecord,Option.map_some],
        v.inRecord_write record⟩

/-- In every run, whatever the tables and the machine start with, each Set that
returned TRUE has reached the record exactly as long as no Set finds its value in
the cache alone, or no record. -/
theorem written_through_iff (p : Platform) (reads : Bool) (a : LinkAgent)
    (events : List LinkEvent) :
    Always (clientStep p reads) WrittenThrough (a,none) events ↔
      Meets (clientStep p reads) ReachesRecord (a,none) events :=
  always_iff_meets (J := WrittenThrough) (fun _ _ h => absurd h (by simp))
    (fun q ev _ hc => (writtenThrough_clientStep_iff p reads q ev).mpr hc) (fun _ h => h)
    (fun q ev _ h => (writtenThrough_clientStep_iff p reads q ev).mp h)

/-- Five ports, the last of them external, so that `Enable` sets its link status. -/
def fivePortsAgent : LinkAgent :=
  ⟨cosaDmlEthPortInit fourPorts { unconfigured with cfgCount := some 5 },linkControlInit⟩

/-- The machine takes `eth4` down while its row still caches that it is up. -/
def droppedSetEvents : List LinkEvent :=
  [.setBool 5 .upstream true succeed,.setBool 5 .enable true succeed,
    iterate,iterate,iterate,iterate,.setWanStatus 5 .up,iterate,
    .setBool 5 .enable false succeed,iterate,.setWanStatus 5 .up]

theorem set_of_cached_value_is_dropped :
    ¬ Always (clientStep fourPorts false) WrittenThrough (fivePortsAgent,none)
      droppedSetEvents := by
  intro h
  obtain ⟨record,hrecord,hv⟩ := h.last 5 (.wanStatus .up) (by decide +kernel)
  have hdown : ((exec (clientStep fourPorts false) (fivePortsAgent,none)
      droppedSetEvents).1.rowRecord 5).map PortRecord.wanStatus = some .down := by
    decide +kernel
  rw [hrecord,Option.map_some,Option.some_inj] at hdown
  exact absurd (hdown.symm.trans hv) (by decide)

end EthAgent
