import EthAgent.PortRows

/-!
Additions to and deletions from the port table that fail, and the deletion of a
row through two handles: `EthRdkInterface_DelEntry` reads the row of the one and
takes out of `Q_EthList` the link of the other.
-/

set_option autoImplicit false

namespace EthAgent
open CString Packed Runs

/-- `EthRdkInterface_DelEntry`. Either handle is that of a row, by its instance
number; `hInsContext` may also be NULL. `none` is its dereference, or a lookup that goes
on behind the records. -/
def ethRdkInterfaceDelEntryOf (p : Platform) (reallocated : Bool) (e : Ethernet)
    (hInsContext : Option Nat) (hInstance : Nat) : Option (Bool × Ethernet) :=
  match e.row hInstance with
  | none => some (false,e)
  | some row =>
    if row.enable then some (false,e)
    else if e.ports.Leaves row.name.text then none
    else
      let updated := cosDmlEthPortUpdateGlobalInfo p reallocated e.ports (some row.name.text)
        .ethDelTable
      if updated.1 then
        hInsContext.map fun link =>
          (true,{ e with ports := updated.2, qEthList := eraseRow link e.qEthList })
      else some (false,{ e with ports := updated.2 })

/-- With the row's own handle twice it is the deletion of `PortRows`. -/
theorem delEntryOf_self (p : Platform) (reallocated : Bool) (e : Ethernet) (ins : Nat)
    (h : ∀ row, e.row ins = some row → ¬e.ports.Leaves row.name.text) :
    ethRdkInterfaceDelEntryOf p reallocated e (some ins) ins =
      some (ethRdkInterfaceDelEntry p reallocated e ins) := by
  unfold ethRdkInterfaceDelEntryOf ethRdkInterfaceDelEntry
  cases hrow : e.row ins with
  | none => rfl
  | some row =>
    cases hen : row.enable with
    | true => simp [hen]
    | false =>
      simp only [hen,h row hrow,Bool.false_eq_true,if_false,Option.map_some]
      split
      · rfl
      · rfl

/-- What changes the rows and the records: the entry points, calls of
`CosDmlEthPortUpdateGlobalInfo`, and writes to fields of a record or a row. -/
inductive EntryOp where
  | rowOp (op : RowOp)
  | delEntry (hInsContext : Option Nat) (hInstance : Nat) (reallocated : Bool)
  | update (reallocated : Bool) (ifname : Option Text) (oper : TableOper)
  | setRecord (i : Nat) (f : PortRecord → PortRecord)
  | setRow (ins : Nat) (f : EthRow → EthRow)

def entryOp (p : Platform) (e : Ethernet) : EntryOp → Ethernet
  | .rowOp op => rowOp p e op
  | .delEntry hInsContext hInstance reallocated =>
    ((ethRdkInterfaceDelEntryOf p reallocated e hInsContext hInstance).getD (false,e)).2
  | .update reallocated ifname oper =>
    { e with ports := (cosDmlEthPortUpdateGlobalInfo p reallocated e.ports ifname oper).2 }
  | .setRecord i f => { e with ports := e.ports.modifyRecord i f }
  | .setRow ins f => { e with qEthList := modifyRow ins f e.qEthList }

section FailedChanges

/-- The update comes to its reallocation. -/
def ReachesRealloc (p : Platform) (t : PortTable) (ifname : Option Text) : TableOper → Prop
  | .ethAddTable => ifname ≠ none
  | .ethDelTable => ∃ i, cosaDmlEthPortGetIndexFromIfName t ifname = some i ∧
      p.totalNumberOfInternalInterfaces ≤ i

theorem update_of_not_reaches {p : Platform} {t : PortTable} {ifname : Option Text}
    {oper : TableOper} (h : ¬ ReachesRealloc p t ifname oper) (reallocated : Bool) :
    cosDmlEthPortUpdateGlobalInfo p reallocated t ifname oper = (false,t) := by
  cases ifname with
  | none => rfl
  | some ifname =>
    cases oper with
    | ethAddTable => exact absurd (Option.some_ne_none ifname) h
    | ethDelTable =>
      simp only [ReachesRealloc,not_exists,not_and,Nat.not_le] at h
      exact update_del_refused p reallocated h

theorem update_of_reallocated {p : Platform} {t : PortTable} {ifname : Option Text}
    {oper : TableOper} (h : ReachesRealloc p t ifname oper) :
    (cosDmlEthPortUpdateGlobalInfo p true t ifname oper).1 = true := by
  cases ifname with
  | none => cases oper <;> simp [ReachesRealloc,cosaDmlEthPortGetIndexFromIfName] at h
  | some ifname =>
    cases oper with
    | ethAddTable => rfl
    | ethDelTable =>
      obtain ⟨i,hi,hp⟩ := h
      have hlt : ¬ i < p.totalNumberOfInternalInterfaces := by omega
      simp only [cosDmlEthPortUpdateGlobalInfo,hi,hlt,if_false,if_true]
      split <;> rfl

/-- A reallocation that fails has lost the records, and changed the counter. -/
theorem update_of_not_reallocated {p : Platform} {t : PortTable} {ifname : Option Text}
    {oper : TableOper} (h : ReachesRealloc p t ifname oper) :
    ∃ t', cosDmlEthPortUpdateGlobalInfo p false t ifname oper = (false,t') ∧ t' ≠ t := by
  cases ifname with
  | none => cases oper <;> simp [ReachesRealloc,cosaDmlEthPortGetIndexFromIfName] at h
  | some ifname =>
    cases oper with
    | ethAddTable =>
      refine ⟨⟨none,t.gTotal,t.ulTotalNoofEthInterfaces+1⟩,rfl,fun heq => ?_⟩
      have htotal := congrArg PortTable.ulTotalNoofEthInterfaces heq
      exact absurd htotal (Nat.succ_ne_self _)
    | ethDelTable =>
      obtain ⟨i,hi,hp⟩ := h
      have hlt : ¬ i < p.totalNumberOfInternalInterfaces := by omega
      have hsome : t.gpstEthGInfo ≠ none := by
        intro hnone
        simp [cosaDmlEthPortGetIndexFromIfName,hnone] at hi
      refine ⟨⟨none,t.gTotal,t.ulTotalNoofEthInterfaces-1⟩,?_,fun heq =>
        hsome (congrArg PortTable.gpstEthGInfo heq).symm⟩
      simp [cosDmlEthPortUpdateGlobalInfo,hi,hlt]

/-- A failure that is reported has changed nothing; an addition whose update of
the global table fails leaves no row. -/
def FailureAtomic (p : Platform) (e : Ethernet) : EntryOp → Prop
  | .update reallocated ifname oper =>
    ∀ t', cosDmlEthPortUpdateGlobalInfo p reallocated e.ports ifname oper = (false,t') →
      t' = e.ports
  | .rowOp (.addEntry allocated reallocated) =>
    allocated = true → ∀ row next, initEthIfaceEntry p e = some (row,next) →
      (cosDmlEthPortUpdateGlobalInfo p reallocated e.ports (some row.name.text)
        .ethAddTable).1 = false →
      (ethRdkInterfaceAddEntry p allocated reallocated e).2.qEthList = e.qEthList
  | _ => True

/-- No reallocation that the call comes to fails. -/
def Reallocates (p : Platform) (e : Ethernet) : EntryOp → Prop
  | .update reallocated ifname oper =>
    ReachesRealloc p e.ports ifname oper → reallocated = true
  | .rowOp (.addEntry allocated reallocated) =>
    allocated = true → (initEthIfaceEntry p e).isSome → reallocated = true
  | _ => True

theorem update_failureAtomic_iff (p : Platform) (e : Ethernet) (reallocated : Bool)
    (ifname : Option Text) (oper : TableOper) :
    FailureAtomic p e (.update reallocated ifname oper) ↔
      Reallocates p e (.update reallocated ifname oper) := by
  simp only [FailureAtomic,Reallocates]
  by_cases hreach : ReachesRealloc p e.ports ifname oper
  · cases reallocated with
    | true =>
      have hok := update_of_reallocated hreach
      refine iff_of_true (fun t' h => ?_) fun _ => rfl
      rw [h] at hok
      exact absurd hok Bool.false_ne_true
    | false =>
      obtain ⟨t',heq,hne⟩ := update_of_not_reallocated hreach
      exact iff_of_false (fun h => hne (h t' heq)) fun h => absurd (h hreach) Bool.false_ne_true
  · have heq := update_of_not_reaches hreach reallocated
    refine iff_of_true (fun t' h => ?_) fun h => absurd h hreach
    rw [heq] at h
    exact (congrArg Prod.snd h).symm

theorem length_pushEntry (row : EthRow) (rows : List EthRow) :
    (cosaSListPushEntryByInsNum row rows).length = rows.length+1 := by
  rw [(perm_pushEntry row rows).length_eq,List.length_cons]

theorem addEntry_failureAtomic_iff (p : Platform) (e : Ethernet) (allocated reallocated : Bool) :
    FailureAtomic p e (.rowOp (.addEntry allocated reallocated)) ↔
      Reallocates p e (.rowOp (.addEntry allocated reallocated)) := by
  simp only [FailureAtomic,Reallocates]
  refine imp_congr_right fun hallocated => ?_
  subst hallocated
  cases hinit : initEthIfaceEntry p e with
  | none => simp
  | some q =>
    obtain ⟨row,next⟩ := q
    have hlen := length_pushEntry row e.qEthList
    cases reallocated with
    | true => simp [cosDmlEthPortUpdateGlobalInfo]
    | false =>
      refine iff_of_false (fun h => ?_) (by simp)
      have hrows := h row next rfl (by simp [cosDmlEthPortUpdateGlobalInfo])
      simp only [ethRdkInterfaceAddEntry,hinit,if_true] at hrows
      rw [hrows] at hlen
      omega

end FailedChanges

section DeletedRows

/-- The records, where there are any, are as many as the data model counts. -/
def Counted (t : PortTable) : Prop :=
  ∀ recs, t.gpstEthGInfo = some recs → recs.length = t.ulTotalNoofEthInterfaces

theorem length_reallocate (p : Platform) (gpstEthGInfo : Option (List PortRecord)) (n : Nat) :
    (reallocate p gpstEthGInfo n).length = n := by
  simp [reallocate]

theorem counted_of_none {t : PortTable} (h : t.gpstEthGInfo = none) : Counted t := by
  intro recs hrecs
  simp [h] at hrecs

theorem counted_of_length {recs : List PortRecord} {n : Nat} (h : recs.length = n)
    (gTotal : Nat) : Counted ⟨some recs,gTotal,n⟩ := by
  intro recs' hrecs
  rwa [← Option.some_inj.mp hrecs]

theorem Counted.update {p : Platform} {t : PortTable} (h : Counted t) (reallocated : Bool)
    (ifname : Option Text) (oper : TableOper) :
    Counted (cosDmlEthPortUpdateGlobalInfo p reallocated t ifname oper).2 := by
  unfold cosDmlEthPortUpdateGlobalInfo
  cases ifname with
  | none => exact h
  | some ifname =>
    cases oper with
    | ethAddTable =>
      cases reallocated with
      | false => exact counted_of_none rfl
      | true => exact counted_of_length (by simp [length_reallocate]) _
    | ethDelTable =>
      dsimp only
      split
      · exact h
      · split
        · exact h
        · split
          · cases reallocated with
            | false => exact counted_of_none rfl
            | true => exact counted_of_length (length_reallocate p _ _) _
          · cases reallocated with
            | false => exact counted_of_none rfl
            | true => exact counted_of_length (by simp [length_reallocate]) _

theorem Counted.modifyRecord {t : PortTable} (h : Counted t) (i : Nat)
    (f : PortRecord → PortRecord) : Counted (t.modifyRecord i f) := by
  intro recs hrecs
  simp only [PortTable.modifyRecord,Option.map_eq_some_iff] at hrecs
  obtain ⟨recs',hrecs',rfl⟩ := hrecs
  rw [List.length_modify]
  exact h recs' hrecs'

theorem Counted.setName {t : PortTable} (h : Counted t) (ifname newIfname : Option Text) :
    Counted (cosaDmlEthPortSetName t ifname newIfname).2 := by
  rcases setName_table t ifname newIfname with heq | ⟨i,name,heq⟩
  · rwa [heq]
  · rw [heq]
    exact h.modifyRecord i _

theorem Counted.setLowerLayers {p : Platform} {t : PortTable} (h : Counted t)
    (ifname newLowerLayers : Option Text) :
    Counted (cosaDmlEthPortSetLowerLayers p t ifname newLowerLayers).2 := by
  rcases setLowerLayers_table p t ifname newLowerLayers with heq | ⟨i,lowerLayers,heq⟩
  · rwa [heq]
  · rw [heq]
    exact h.modifyRecord i _

theorem Counted.setString {p : Platform} {e : Ethernet} (h : Counted e.ports) (ins : Nat)
    (paramName : StringParam) (pString : Text) :
    Counted (ethRdkInterfaceSetParamStringValue p e ins paramName pString).2.ports := by
  rcases setString_ports p e ins paramName pString with heq | ⟨ifname,heq | heq⟩
  · rwa [heq]
  · rw [heq]
    exact h.setName ifname (some pString)
  · rw [heq]
    exact h.setLowerLayers ifname (some pString)

theorem Counted.delEntryOf {p : Platform} {e : Ethernet} (h : Counted e.ports)
    (reallocated : Bool) (hInsContext : Option Nat) (hInstance : Nat) :
    Counted ((ethRdkInterfaceDelEntryOf p reallocated e hInsContext hInstance).getD
      (false,e)).2.ports := by
  unfold ethRdkInterfaceDelEntryOf
  split
  · exact h
  · next row hrow =>
    have hupdate := h.update (p := p) reallocated (some row.name.text) .ethDelTable
    dsimp only
    split
    · exact h
    · split
      · exact h
      · split
        · cases hInsContext with
          | none => exact h
          | some link => exact hupdate
        · exact hupdate

theorem Counted.delEntry {p : Platform} {e : Ethernet} (h : Counted e.ports)
    (reallocated : Bool) (ins : Nat) :
    Counted (ethRdkInterfaceDelEntry p reallocated e ins).2.ports := by
  unfold ethRdkInterfaceDelEntry
  split
  · exact h
  · next row hrow =>
    have hupdate := h.update (p := p) reallocated (some row.name.text) .ethDelTable
    dsimp only
    split
    · exact h
    · split
      · exact hupdate
      · exact hupdate

theorem Counted.addEntry {p : Platform} {e : Ethernet} (h : Counted e.ports)
    (allocated reallocated : Bool) :
    Counted (ethRdkInterfaceAddEntry p allocated reallocated e).2.ports := by
  unfold ethRdkInterfaceAddEntry
  split
  · split
    · exact h
    · exact h.update _ _ _
  · exact h

theorem Counted.entryOp {p : Platform} {e : Ethernet} (h : Counted e.ports) (op : EntryOp) :
    Counted (entryOp p e op).ports := by
  cases op with
  | rowOp op =>
    cases op with
    | addEntry allocated reallocated => exact h.addEntry allocated reallocated
    | delEntry ins reallocated => exact h.delEntry reallocated ins
    | setString ins paramName pString => exact h.setString ins paramName pString
  | delEntry hInsContext hInstance reallocated =>
    exact h.delEntryOf reallocated hInsContext hInstance
  | update reallocated ifname oper => exact h.update reallocated ifname oper
  | setRecord i f => exact h.modifyRecord i f
  | setRow ins f => exact h

theorem counted_init (p : Platform) (c : PortConfig) : Counted (cosaDmlEthPortInit p c).ports := by
  have hports := (exec_pushInitRow p c ⟨⟨none,c.total p,c.total p⟩,1,[]⟩
    ((List.range (c.total p)).takeWhile c.rowAllocated)).1
  unfold cosaDmlEthPortInit
  dsimp only
  split
  · rw [hports,cosDmlEthPortPrepareGlobalInfo]
    split
    · intro recs hrecs
      simp only [Option.some_inj] at hrecs
      simp [← hrecs]
    · exact counted_of_none rfl
  · rw [hports]
    exact counted_of_none rfl

theorem exec_counted (p : Platform) (c : PortConfig) (ops : List EntryOp) :
    Counted (exec (entryOp p) (cosaDmlEthPortInit p c) ops).ports :=
  exec_inv_all (J := fun e : Ethernet => Counted e.ports) (counted_init p c)
    (fun _ op h => h.entryOp op) ops

/-- The deletion looks for the row's Name inside the table; when it returns success it has
taken out the row of `hInstance`, and the record found under its Name. -/
def DeletesRow (p : Platform) (reallocated : Bool) (e : Ethernet) (hInsContext : Option Nat)
    (hInstance : Nat) : Prop :=
  (∀ row, e.row hInstance = some row → row.enable = false →
    ¬e.ports.Leaves row.name.text) ∧
  ∀ e', ethRdkInterfaceDelEntryOf p reallocated e hInsContext hInstance = some (true,e') →
    ∃ row l r, e.row hInstance = some row ∧ e.qEthList = l ++ row :: r ∧ e'.qEthList = l ++ r ∧
      ∃ removed, cosaDmlEthPortGetCopyOfGlobalInfoForGivenIfName e.ports
          (some row.name.text) = some removed ∧ removed.name.text = row.name.text ∧
        (e.ports.records.map PortRecord.fields).Perm
          (removed.fields :: e'.ports.records.map PortRecord.fields)

/-- Unless the row is enabled: its Name is in the table, or `gTotal` counts no more than the
records; and unless the deletion is refused, `hInsContext` is the handle of the same row,
or NULL, with which the call does not come back, and the texts of the last record can be
copied to the index that becomes free. -/
def OwnLink (p : Platform) (reallocated : Bool) (e : Ethernet) (hInsContext : Option Nat)
    (hInstance : Nat) : Prop :=
  ∀ row, e.row hInstance = some row → row.enable = false →
    (row.name.text ∉ e.ports.names → ∀ recs, e.ports.gpstEthGInfo = some recs →
      e.ports.gTotal ≤ recs.length) ∧
    (reallocated = true → ∀ i,
      cosaDmlEthPortGetIndexFromIfName e.ports (some row.name.text) = some i →
      p.totalNumberOfInternalInterfaces ≤ i → ∀ link, hInsContext = some link →
      link = hInstance ∧ ∀ last ∈ e.ports.records.getLast?, ∀ memory ∈ e.ports.records[i]?,
        i+1 < e.ports.records.length → memory.Takes last)

theorem not_leaves_of_index {t : PortTable} {x : Text} {i : Nat}
    (h : cosaDmlEthPortGetIndexFromIfName t (some x) = some i) : ¬t.Leaves x := fun hl =>
  hl.2.2 ((getIndexFromIfName_eq_some_iff t x i).mp h).mem

/-- When a deletion returns success, and what it has done then. -/
theorem delEntryOf_eq_some_true_iff {p : Platform} {reallocated : Bool} {e : Ethernet}
    (hc : Counted e.ports) {hInsContext : Option Nat} {hInstance : Nat} {e' : Ethernet} :
    ethRdkInterfaceDelEntryOf p reallocated e hInsContext hInstance = some (true,e') ↔
      ∃ row link i, e.row hInstance = some row ∧ hInsContext = some link ∧
        row.enable = false ∧ reallocated = true ∧
        cosaDmlEthPortGetIndexFromIfName e.ports (some row.name.text) = some i ∧
        p.totalNumberOfInternalInterfaces ≤ i ∧
        e' = { e with
          ports := ⟨some (swapRemoveBy copyRecord e.ports.records i),e.ports.gTotal-1,
            e.ports.ulTotalNoofEthInterfaces-1⟩
          qEthList := eraseRow link e.qEthList } := by
  unfold ethRdkInterfaceDelEntryOf
  cases hrow : e.row hInstance with
  | none => simp
  | some row =>
    cases hen : row.enable with
    | true => simp [hen]
    | false =>
      by_cases hreach : ReachesRealloc p e.ports (some row.name.text) .ethDelTable
      · have hstays : ¬e.ports.Leaves row.name.text :=
          hreach.elim fun _ h => not_leaves_of_index h.1
        cases reallocated with
        | false =>
          obtain ⟨t',heq,-⟩ := update_of_not_reallocated hreach
          simp [hen,heq,hstays]
        | true =>
          obtain ⟨i,hi,hp⟩ := hreach
          cases hrecs : e.ports.gpstEthGInfo with
          | none => simp [cosaDmlEthPortGetIndexFromIfName,hrecs] at hi
          | some recs =>
            have heq := update_del_of_length p hrecs (hc recs hrecs) hi hp
            have hgetD : e.ports.records = recs := by simp [PortTable.records,hrecs]
            cases hInsContext with
            | none => simp [hen,heq,hstays]
            | some link =>
              simp only [hen,heq,hstays,Bool.false_eq_true,if_false,if_true,Option.map_some,
                Option.some_inj,Prod.mk.injEq,true_and]
              constructor
              · intro he
                exact ⟨row,link,i,rfl,rfl,hen,hi,hp,by rw [← he,hgetD]⟩
              · rintro ⟨row',link',j,rfl,rfl,-,hj,-,he⟩
                rw [hi,Option.some_inj] at hj
                rw [he,hgetD,hj]
      · have heq := update_of_not_reaches hreach reallocated
        simp only [ReachesRealloc,not_exists,not_and,Nat.not_le] at hreach
        refine iff_of_false (fun h => ?_) ?_
        · simp only [hen,heq,Bool.false_eq_true,if_false] at h
          split at h
          · exact absurd h (by simp)
          · exact absurd h (by simp)
        · rintro ⟨row',link,i,hrow',-,-,-,hi,hp,-⟩
          obtain rfl := Option.some_inj.mp hrow'
          exact absurd hp (Nat.not_le.mpr (hreach i hi))

theorem countP_eraseRow (link ins : Nat) (hne : link ≠ ins) (rows : List EthRow) :
    (eraseRow link rows).countP (fun r => r.ulInstanceNumber = ins) =
      rows.countP fun r => r.ulInstanceNumber = ins := by
  induction rows with
  | nil => rfl
  | cons r rows ih =>
    unfold eraseRow at ih ⊢
    by_cases hr : r.ulInstanceNumber = link
    · simp [hr,hne]
    · simp only [List.eraseP_cons,hr,decide_false,cond_false,List.countP_cons,ih]

/-- Where the others are what they were, the last record has its texts at its new place. -/
theorem takes_of_perm {recs : List PortRecord} {removed : PortRecord} {i : Nat}
    (hi : recs[i]? = some removed)
    (hperm : (recs.map PortRecord.fields).Perm
      (removed.fields :: (swapRemoveBy copyRecord recs i).map PortRecord.fields)) :
    ∀ last ∈ recs.getLast?, ∀ memory ∈ recs[i]?, i+1 < recs.length → memory.Takes last := by
  intro last hlast memory hm hlt
  obtain rfl := Option.some_inj.mp (hi.symm.trans hm)
  obtain ⟨l,rfl⟩ := List.getLast?_eq_some_iff.mp hlast
  rw [List.length_append,List.length_singleton] at hlt
  rw [List.getElem?_append_left (by omega)] at hi
  rw [swapRemoveBy_concat,map_modify_of_getElem? hi,List.map_append,List.map_singleton] at hperm
  have hget : (l.map PortRecord.fields)[i]? = some removed.fields := by
    rw [List.getElem?_map,hi,Option.map_some]
  obtain ⟨rest,hold,hset⟩ := exists_perm_set hget (copyRecord last removed).fields
  have hold' := (List.perm_append_singleton last.fields _).trans (hold.cons _)
  have hall := (hold'.symm.trans hperm).trans (hset.cons _)
  have hswap := (List.Perm.swap last.fields removed.fields rest).trans hall
  have hsame : [last.fields].Perm [(copyRecord last removed).fields] :=
    (List.perm_append_right_iff rest).mp ((List.perm_cons _).mp hswap)
  exact fields_copyRecord_iff.mp (List.singleton_perm_singleton.mp hsame).symm

theorem deletesRow_iff {p : Platform} {reallocated : Bool} {e : Ethernet}
    (hc : Counted e.ports) (hInsContext : Option Nat) (hInstance : Nat) :
    DeletesRow p reallocated e hInsContext hInstance ↔
      OwnLink p reallocated e hInsContext hInstance := by
  constructor
  · rintro ⟨hstays,h⟩ row hrow hen
    refine ⟨(not_leaves_iff _ _).mp (hstays row hrow hen),fun hre i hi hp link hlink => ?_⟩
    obtain ⟨row',l,r,hrow',hsplit,hrows,removed,hremoved,-,hperm⟩ :=
      h _ ((delEntryOf_eq_some_true_iff hc).mpr ⟨row,link,i,hrow,hlink,hen,hre,hi,hp,rfl⟩)
    obtain rfl := Option.some_inj.mp (hrow'.symm.trans hrow)
    refine ⟨?_,?_⟩
    · by_contra hne
      have hins : row'.ulInstanceNumber = hInstance := by
        have hfind := List.find?_some hrow'
        simpa using hfind
      have hcount := countP_eraseRow link hInstance hne e.qEthList
      simp only at hrows
      rw [hrows,hsplit] at hcount
      simp only [List.countP_append,List.countP_cons,hins,decide_true,if_true] at hcount
      omega
    · rw [getCopy_of_index hi] at hremoved
      exact takes_of_perm hremoved hperm
  · intro h
    refine ⟨fun row hrow hen => (not_leaves_iff _ _).mpr (h row hrow hen).1,fun e' hdel => ?_⟩
    obtain ⟨row,link,i,hrow,hlink,hen,hre,hi,hp,rfl⟩ := (delEntryOf_eq_some_true_iff hc).mp hdel
    obtain ⟨rfl,htakes⟩ := (h row hrow hen).2 hre i hi hp link hlink
    obtain ⟨l,r,hsplit,-,-,herase⟩ := row_split hrow
    obtain ⟨removed,hremoved,hname⟩ := record_of_index hi
    obtain ⟨hlt,rfl⟩ := List.getElem?_eq_some_iff.mp hremoved
    exact ⟨row,l,r,hrow,hsplit,herase,_,(getCopy_of_index hi).trans hremoved,hname,
      perm_swapRemoveBy hlt htakes⟩

/-- The deletion of the row just added succeeds, and rows, records and counters
are as they were before the addition. -/
def AddedRowGoes (p : Platform) (allocated reallocatedAdd reallocatedDel : Bool) (e : Ethernet)
    (hInsContext : Option Nat) : Prop :=
  ∀ ins e₁, ethRdkInterfaceAddEntry p allocated reallocatedAdd e = (some ins,e₁) →
    ∃ e₂, ethRdkInterfaceDelEntryOf p reallocatedDel e₁ hInsContext ins = some (true,e₂) ∧
      e₂.qEthList = e.qEthList ∧
      e₂.ports.records.map PortRecord.fields = e.ports.records.map PortRecord.fields ∧
      e₂.ports.gTotal = e.ports.gTotal ∧
      e₂.ports.ulTotalNoofEthInterfaces = e.ports.ulTotalNoofEthInterfaces

/-- The records that a lookup goes through once one has been added. -/
def searchedRecords (p : Platform) (t : PortTable) : List PortRecord :=
  (t.records ++ [addedRecord p t.records]).take (t.gTotal+1)

/-- The first record with the name of the new row is no other than the new
record would be, and an external port. -/
def FindsNewRecord (p : Platform) (t : PortTable) (row : EthRow) : Prop :=
  ∃ i, (searchedRecords p t).findIdx? (fun r => r.name.text = row.name.text) = some i ∧
    p.totalNumberOfInternalInterfaces ≤ i ∧
    (searchedRecords p t)[i]?.map PortRecord.fields = some (addedRecord p t.records).fields

/-- Unless nothing is added, both reallocations succeed on a table that has its
records, the new row's name finds the new record, and the link is the new row's. -/
def NamedAlike (p : Platform) (allocated reallocatedAdd reallocatedDel : Bool) (e : Ethernet)
    (hInsContext : Option Nat) : Prop :=
  allocated = true → ∀ row next, initEthIfaceEntry p e = some (row,next) →
    reallocatedAdd = true ∧ reallocatedDel = true ∧
      e.ports.records.length = e.ports.ulTotalNoofEthInterfaces ∧
      FindsNewRecord p e.ports row ∧ hInsContext = some row.ulInstanceNumber

theorem initEthIfaceEntry_fresh {p : Platform} {e : Ethernet} {row : EthRow} {next : Nat}
    (h : initEthIfaceEntry p e = some (row,next)) :
    row.enable = false ∧ ∀ r ∈ e.qEthList, r.ulInstanceNumber ≠ row.ulInstanceNumber := by
  simp only [initEthIfaceEntry,Option.map_eq_some_iff,Prod.mk.injEq] at h
  obtain ⟨n,hn,rfl,-⟩ := h
  exact ⟨rfl,freeInstance_fresh hn⟩

theorem find_pushEntry {row : EthRow} {rows : List EthRow}
    (hfresh : ∀ r ∈ rows, r.ulInstanceNumber ≠ row.ulInstanceNumber) :
    (cosaSListPushEntryByInsNum row rows).find?
      (fun r => r.ulInstanceNumber = row.ulInstanceNumber) = some row := by
  obtain ⟨l,r,rfl,hpush⟩ := exists_pushEntry row rows
  refine List.find?_eq_some_iff_append.mpr ⟨by simp,l,r,hpush,fun x hx => ?_⟩
  simpa using hfresh x (List.mem_append_left r hx)

theorem erase_pushEntry {row : EthRow} {rows : List EthRow}
    (hfresh : ∀ r ∈ rows, r.ulInstanceNumber ≠ row.ulInstanceNumber) :
    eraseRow row.ulInstanceNumber (cosaSListPushEntryByInsNum row rows) = rows := by
  obtain ⟨l,r,rfl,hpush⟩ := exists_pushEntry row rows
  rw [hpush,eraseRow,List.eraseP_append_right]
  · simp
  · exact fun x hx => by simpa using hfresh x (List.mem_append_left r hx)

theorem erase_pushEntry_iff {row : EthRow} {rows : List EthRow} {link : Nat}
    (hfresh : ∀ r ∈ rows, r.ulInstanceNumber ≠ row.ulInstanceNumber) :
    eraseRow link (cosaSListPushEntryByInsNum row rows) = rows ↔
      link = row.ulInstanceNumber := by
  constructor
  · intro h
    by_contra hne
    have hcount := countP_eraseRow link row.ulInstanceNumber hne
      (cosaSListPushEntryByInsNum row rows)
    have hpush := (perm_pushEntry row rows).countP_eq
      fun r => decide (r.ulInstanceNumber = row.ulInstanceNumber)
    rw [h,hpush] at hcount
    simp at hcount
  · rintro rfl
    exact erase_pushEntry hfresh

/-- The records after an addition: as many as counted, and the old ones with a
new one behind them where the old ones were there. -/
theorem update_add_true (p : Platform) {t : PortTable} (hc : Counted t) (ifname : Text) :
    ∃ recs, cosDmlEthPortUpdateGlobalInfo p true t (some ifname) .ethAddTable =
        (true,⟨some recs,t.gTotal+1,t.ulTotalNoofEthInterfaces+1⟩) ∧
      recs.length = t.ulTotalNoofEthInterfaces+1 ∧
      (t.records.length = t.ulTotalNoofEthInterfaces →
        recs = t.records ++ [addedRecord p t.records]) := by
  cases hrecs : t.gpstEthGInfo with
  | some recs =>
    refine ⟨_,update_add_of_length p hrecs (hc recs hrecs) ifname,?_,fun _ => ?_⟩
    · simp [hc recs hrecs]
    · simp [PortTable.records,hrecs]
  | none =>
    refine ⟨_,rfl,by simp [length_reallocate],fun hlen => ?_⟩
    simp only [PortTable.records,hrecs,Option.getD_none,List.length_nil] at hlen
    simp [← hlen,hrecs,PortTable.records,reallocate,addedRecord]

/-- Removing an entry restores the list without the last one exactly if it reads as that. -/
theorem fields_swapRemoveBy_concat_iff {recs : List PortRecord} {r : PortRecord} (hr : r.Short)
    {i : Nat} (hi : i < recs.length+1) :
    (swapRemoveBy copyRecord (recs ++ [r]) i).map PortRecord.fields =
        recs.map PortRecord.fields ↔
      (recs ++ [r])[i]?.map PortRecord.fields = some r.fields := by
  rw [swapRemoveBy_concat]
  by_cases hlt : i < recs.length
  · have hget : recs[i]? = some recs[i] := List.getElem?_eq_getElem hlt
    have hcopy : (copyRecord r recs[i]).fields = r.fields :=
      fields_copyRecord_iff.mpr (hr.takes recs[i])
    rw [map_modify_of_getElem? hget,hcopy,List.getElem?_append_left hlt,hget,Option.map_some,
      Option.some_inj]
    have hlen : i < (recs.map PortRecord.fields).length := by rwa [List.length_map]
    constructor
    · intro h
      have hi := congrArg (fun l => l[i]?) h
      simpa [List.getElem?_set_self hlen,hget] using hi.symm
    · intro h
      rw [← h,← List.getElem_map (h := hlen) PortRecord.fields,List.set_getElem_self]
  · have he : i = recs.length := by omega
    subst he
    simp [List.modify_eq_self]

/-- After an addition the new row is there, the counters are one ahead, and a
lookup goes through the records searched. -/
theorem addedRow_deletes_iff {p : Platform} {e : Ethernet} (hc : Counted e.ports) {row : EthRow}
    {next : Nat} (hinit : initEthIfaceEntry p e = some (row,next)) (reallocatedDel : Bool)
    (hInsContext : Option Nat) :
    (∃ e₂, ethRdkInterfaceDelEntryOf p reallocatedDel
        (ethRdkInterfaceAddEntry p true true e).2 hInsContext row.ulInstanceNumber =
          some (true,e₂) ∧
      e₂.qEthList = e.qEthList ∧
      e₂.ports.records.map PortRecord.fields = e.ports.records.map PortRecord.fields ∧
      e₂.ports.gTotal = e.ports.gTotal ∧
      e₂.ports.ulTotalNoofEthInterfaces = e.ports.ulTotalNoofEthInterfaces) ↔
      reallocatedDel = true ∧ e.ports.records.length = e.ports.ulTotalNoofEthInterfaces ∧
        FindsNewRecord p e.ports row ∧ hInsContext = some row.ulInstanceNumber := by
  obtain ⟨hen,hfresh⟩ := initEthIfaceEntry_fresh hinit
  obtain ⟨recs,heq,hlen,happ⟩ := update_add_true p hc row.name.text
  have hc₁ : Counted ⟨some recs,e.ports.gTotal+1,e.ports.ulTotalNoofEthInterfaces+1⟩ := by
    intro recs' hrecs'
    rw [← Option.some_inj.mp hrecs']
    exact hlen
  simp only [ethRdkInterfaceAddEntry,hinit,if_true,heq]
  constructor
  · rintro ⟨e₂,hdel,hrows,hrecs,-⟩
    obtain ⟨row',link,i,hrow',hlink,-,hre,hi,hp,rfl⟩ := (delEntryOf_eq_some_true_iff hc₁).mp hdel
    have hrow : row' = row := Option.some_inj.mp (hrow'.symm.trans (find_pushEntry hfresh))
    subst hrow
    have hlt := index_lt rfl hi
    have hrecs' : (swapRemoveBy copyRecord recs i).map PortRecord.fields =
      e.ports.records.map PortRecord.fields := hrecs
    have hcount : e.ports.records.length = e.ports.ulTotalNoofEthInterfaces := by
      have hlength := congrArg List.length hrecs'
      rw [List.length_map,List.length_map,length_swapRemoveBy,hlen] at hlength
      omega
    have hown := (erase_pushEntry_iff hfresh).mp hrows
    rw [happ hcount] at hi hlt hrecs'
    have hnew := (fields_swapRemoveBy_concat_iff (short_newRecord p _ _)
      (by simpa using hlt.1)).mp hrecs'
    refine ⟨hre,hcount,⟨i,hi,hp,?_⟩,by rw [hlink,hown]⟩
    rw [searchedRecords,List.getElem?_take_of_lt hlt.2]
    exact hnew
  · rintro ⟨hre,hcount,⟨i,hi,hp,hget⟩,hlink⟩
    have happ' := happ hcount
    subst happ'
    have hlt := index_lt (t := ⟨some _,e.ports.gTotal+1,0⟩) rfl hi
    rw [searchedRecords,List.getElem?_take_of_lt hlt.2] at hget
    refine ⟨_,(delEntryOf_eq_some_true_iff hc₁).mpr
      ⟨row,_,i,find_pushEntry hfresh,hlink,hen,hre,hi,hp,rfl⟩,erase_pushEntry hfresh,?_,rfl,rfl⟩
    exact (fields_swapRemoveBy_concat_iff (short_newRecord p _ _) (by simpa using hlt.1)).mpr hget

theorem addedRowGoes_iff {p : Platform} {e : Ethernet} (hc : Counted e.ports)
    (allocated reallocatedAdd reallocatedDel : Bool) (hInsContext : Option Nat) :
    AddedRowGoes p allocated reallocatedAdd reallocatedDel e hInsContext ↔
      NamedAlike p allocated reallocatedAdd reallocatedDel e hInsContext := by
  unfold AddedRowGoes NamedAlike
  cases allocated with
  | false => simp [ethRdkInterfaceAddEntry]
  | true =>
    cases hinit : initEthIfaceEntry p e with
    | none => simp [ethRdkInterfaceAddEntry,hinit]
    | some q =>
      obtain ⟨row,next⟩ := q
      have hadd : ∀ ra, ethRdkInterfaceAddEntry p true ra e =
          (some row.ulInstanceNumber,(ethRdkInterfaceAddEntry p true ra e).2) := by
        simp [ethRdkInterfaceAddEntry,hinit]
      cases reallocatedAdd with
      | false =>
        refine iff_of_false (fun h => ?_) (by simp)
        obtain ⟨e₂,hdel,-⟩ := h _ _ (hadd false)
        have hnone : (ethRdkInterfaceAddEntry p true false e).2.ports.gpstEthGInfo = none := by
          simp [ethRdkInterfaceAddEntry,hinit,cosDmlEthPortUpdateGlobalInfo]
        obtain ⟨_,_,i,-,-,-,-,hi,-⟩ :=
          (delEntryOf_eq_some_true_iff (counted_of_none hnone)).mp hdel
        simp [cosaDmlEthPortGetIndexFromIfName,hnone] at hi
      | true =>
        have hdel := addedRow_deletes_iff hc hinit reallocatedDel hInsContext
        constructor
        · intro h _ row' next' heq
          cases heq
          exact ⟨rfl,hdel.mp (h _ _ (hadd true))⟩
        · intro h ins e₁ heq
          rw [hadd true,Prod.mk.injEq,Option.some_inj] at heq
          obtain ⟨rfl,rfl⟩ := heq
          exact hdel.mpr (h rfl row next rfl).2

/-- In every state reached a successful deletion takes out the row and a record
of its Name exactly if the link popped is the row's, and deleting the row just
added undoes the addition exactly if row and record are named alike. -/
theorem deletion_exact_iff (p : Platform) (c : PortConfig) (ops : List EntryOp) :
    (∀ reallocated hInsContext hInstance,
      DeletesRow p reallocated (exec (entryOp p) (cosaDmlEthPortInit p c) ops) hInsContext
          hInstance ↔
        OwnLink p reallocated (exec (entryOp p) (cosaDmlEthPortInit p c) ops) hInsContext
          hInstance) ∧
      ∀ allocated reallocatedAdd reallocatedDel hInsContext,
        AddedRowGoes p allocated reallocatedAdd reallocatedDel
            (exec (entryOp p) (cosaDmlEthPortInit p c) ops) hInsContext ↔
          NamedAlike p allocated reallocatedAdd reallocatedDel
            (exec (entryOp p) (cosaDmlEthPortInit p c) ops) hInsContext :=
  have hc := exec_counted p c ops
  ⟨fun _ => deletesRow_iff hc,addedRowGoes_iff hc⟩

/-- Rows 5 and 6 added, 5 as the context and 6 as the instance: the row 5 goes
with the record of row 6. And once row 5 is deleted, the row added next is `eth6`,
its record `eth5`: the row cannot be deleted again. -/
theorem other_row_deleted :
    ¬ DeletesRow fourPorts true (exec (entryOp fourPorts)
        (cosaDmlEthPortInit fourPorts unconfigured)
        [.rowOp (.addEntry true true),.rowOp (.addEntry true true)]) (some 5) 6 ∧
      ¬ AddedRowGoes fourPorts true true true (exec (entryOp fourPorts)
        (cosaDmlEthPortInit fourPorts unconfigured)
        [.rowOp (.addEntry true true),.rowOp (.addEntry true true),
          .delEntry (some 5) 5 true]) (some 7) := by
  constructor
  · intro h
    have hown := (deletesRow_iff (exec_counted fourPorts unconfigured _) _ _).mp h
    exact absurd ((hown _ rfl rfl).2 rfl 5 (by decide +kernel) (by decide) 5 rfl).1 (by decide)
  · intro h
    obtain ⟨e₂,hdel,-⟩ := h _ _ rfl
    have hok : Option.map Prod.fst _ = some true := congrArg (Option.map Prod.fst) hdel
    exact absurd hok (by decide +kernel)

end DeletedRows

end EthAgent
