import EthAgent.PortRows

/-!
The PHY path that the agent hands to the WAN manager. It is made from the
index of a name in the global table, and agrees with the data model as long as
the records stand in the order of the instance numbers of their rows.
-/

set_option autoImplicit false

namespace EthAgent
open CString Packed Runs

/-- The parameters of a WAN manager entry that are set here. -/
inductive WanParam where
  | phyPath
  | phyStatus
  deriving DecidableEq

/-- The answers of the WAN manager: the name of each of its entries, if it can be
read, and whether it takes the value of a parameter. -/
structure WanManager where
  interfaceNames : List (Option Text)
  accepts : WanParam → Bool

/-- One call of `CosaDmlEthSetParamValues` to the WAN manager. -/
structure WanSet where
  iWANInstance : Nat
  param : WanParam
  value : Text

/-- `CosaDmlEthGetLowerLayersInstanceInOtherAgent(NOTIFY_TO_WAN_AGENT, …)`; `none`
for the instance -1. -/
def cosaDmlEthGetLowerLayersInstanceInOtherAgent (w : WanManager) (pLowerLayers : Text) :
    Option Nat :=
  (w.interfaceNames.findIdx? fun name => name = some pLowerLayers).map (·+1)

/-- The instance asked for with the Name of the copied record, which stays empty
when there is no record. -/
def wanInstance (w : WanManager) (t : PortTable) (ifname : Text) : Option Nat :=
  cosaDmlEthGetLowerLayersInstanceInOtherAgent w
    ((cosaDmlEthPortGetCopyOfGlobalInfoForGivenIfName t (some ifname)).elim []
      fun r => r.name.text)

def ethIfPhyPath (n : Nat) : Text := "Device.Ethernet.X_RDK_Interface.".toList ++ decimal n

def cosaDmlEthSetPhyPathForWanManager (w : WanManager) (t : PortTable) (ifname : Option Text) :
    Bool × List WanSet :=
  match ifname with
  | none => (false,[])
  | some ifname =>
    match wanInstance w t ifname with
    | none => (false,[])
    | some iWANInstance =>
      match cosaDmlEthPortGetIndexFromIfName t (some ifname) with
      | none => (false,[])
      | some iLinkInstance =>
        (w.accepts .phyPath,[⟨iWANInstance,.phyPath,ethIfPhyPath (iLinkInstance+1)⟩])

/-- `autowan` is the build with `AUTOWAN_ENABLE`, in which the path is not set. -/
def cosaDmlEthSetPhyStatusForWanManager (autowan : Bool) (w : WanManager) (t : PortTable)
    (ifname phyStatus : Option Text) : Bool × List WanSet :=
  match ifname,phyStatus with
  | some ifname,some phyStatus =>
    match wanInstance w t ifname with
    | none => (false,[])
    | some iWANInstance =>
      let status : WanSet := ⟨iWANInstance,.phyStatus,phyStatus⟩
      if autowan then (w.accepts .phyStatus,[status])
      else
        match cosaDmlEthPortGetIndexFromIfName t (some ifname) with
        | none => (false,[])
        | some iLinkInstance =>
          let path : WanSet := ⟨iWANInstance,.phyPath,ethIfPhyPath (iLinkInstance+1)⟩
          if w.accepts .phyPath then (w.accepts .phyStatus,[path,status])
          else (false,[path])
  | _,_ => (false,[])

def EthRow.dmPath (r : EthRow) : Text :=
  "Device.Ethernet.X_RDK_Interface.".toList ++ decimal r.ulInstanceNumber

/-- Every path handed to the WAN manager for the Name of a row is that row's. -/
def PathsAgree (e : Ethernet) : Prop :=
  ∀ r ∈ e.qEthList, ∀ w autowan phyStatus,
    ∀ c ∈ (cosaDmlEthSetPhyPathForWanManager w e.ports (some r.name.text)).2 ++
      (cosaDmlEthSetPhyStatusForWanManager autowan w e.ports (some r.name.text) phyStatus).2,
      c.param = .phyPath → c.value = r.dmPath

theorem phyPath_of_mem {w : WanManager} {t : PortTable} {ifname : Text} {autowan : Bool}
    {phyStatus : Option Text} {c : WanSet}
    (hc : c ∈ (cosaDmlEthSetPhyPathForWanManager w t (some ifname)).2 ++
      (cosaDmlEthSetPhyStatusForWanManager autowan w t (some ifname) phyStatus).2)
    (hp : c.param = .phyPath) :
    ∃ i, cosaDmlEthPortGetIndexFromIfName t (some ifname) = some i ∧
      c.value = ethIfPhyPath (i+1) := by
  rcases List.mem_append.mp hc with hc | hc
  · simp only [cosaDmlEthSetPhyPathForWanManager] at hc
    cases hw : wanInstance w t ifname with
    | none => simp [hw] at hc
    | some n =>
      cases hi : cosaDmlEthPortGetIndexFromIfName t (some ifname) with
      | none => simp [hw,hi] at hc
      | some i =>
        simp only [hw,hi,List.mem_singleton] at hc
        exact ⟨i,rfl,congrArg WanSet.value hc⟩
  · cases phyStatus with
    | none => simp [cosaDmlEthSetPhyStatusForWanManager] at hc
    | some status =>
      simp only [cosaDmlEthSetPhyStatusForWanManager] at hc
      cases hw : wanInstance w t ifname with
      | none => simp [hw] at hc
      | some n =>
        cases autowan with
        | true =>
          simp only [hw,if_true,List.mem_singleton] at hc
          rw [hc] at hp
          cases hp
        | false =>
          cases hi : cosaDmlEthPortGetIndexFromIfName t (some ifname) with
          | none => simp [hw,hi] at hc
          | some i =>
            refine ⟨i,rfl,?_⟩
            cases ha : w.accepts .phyPath with
            | false =>
              simp only [hw,hi,ha,Bool.false_eq_true,if_false,List.mem_singleton] at hc
              exact congrArg WanSet.value hc
            | true =>
              simp only [hw,hi,ha,Bool.false_eq_true,if_false,if_true,List.mem_cons,
                List.not_mem_nil,or_false] at hc
              rcases hc with hc | hc
              · exact congrArg WanSet.value hc
              · rw [hc] at hp
                cases hp

theorem ethIfPhyPath_injective {m n : Nat} (h : ethIfPhyPath m = ethIfPhyPath n) : m = n := by
  unfold ethIfPhyPath at h
  exact decimal_injective (List.append_cancel_left h)

theorem dmPath_eq (r : EthRow) : r.dmPath = ethIfPhyPath r.ulInstanceNumber := rfl

theorem pathsAgree_iff (e : Ethernet) :
    PathsAgree e ↔ ∀ r ∈ e.qEthList, ∀ i, FirstAt e.ports.names r.name.text i →
      r.ulInstanceNumber = i+1 := by
  constructor
  · intro h r hr i hfirst
    have hi := (getIndexFromIfName_eq_some_iff e.ports r.name.text i).mpr hfirst
    let copied := (cosaDmlEthPortGetCopyOfGlobalInfoForGivenIfName e.ports
      (some r.name.text)).elim [] fun r => r.name.text
    have hw : wanInstance ⟨[some copied],fun _ => true⟩ e.ports r.name.text = some 1 := by
      simp [wanInstance,cosaDmlEthGetLowerLayersInstanceInOtherAgent,copied]
    have hval := h r hr ⟨[some copied],fun _ => true⟩ true none
      ⟨1,.phyPath,ethIfPhyPath (i+1)⟩ (List.mem_append_left _ (by
        simp [cosaDmlEthSetPhyPathForWanManager,hw,hi])) rfl
    exact (ethIfPhyPath_injective hval).symm
  · intro h r hr w autowan phyStatus c hc hp
    obtain ⟨i,hi,hval⟩ := phyPath_of_mem hc hp
    have hins := h r hr i ((getIndexFromIfName_eq_some_iff e.ports r.name.text i).mp hi)
    rw [hval,dmPath_eq,hins]

/-- The paths agree, and no two rows have one instance number. -/
structure PathsKept (e : Ethernet) (recs : List PortRecord) : Prop where
  counted : e.ports = .ofRecords recs
  instances : (e.qEthList.map EthRow.ulInstanceNumber).Nodup
  indexes : ∀ r ∈ e.qEthList, ∀ i, FirstAt (recordNames recs) r.name.text i →
    r.ulInstanceNumber = i+1

theorem PathsKept.names {e : Ethernet} {recs : List PortRecord} (h : PathsKept e recs) :
    e.ports.names = recordNames recs := names_of_counted h.counted

theorem PathsKept.pathsAgree {e : Ethernet} {recs : List PortRecord} (h : PathsKept e recs) :
    PathsAgree e := by
  rw [pathsAgree_iff,h.names]
  exact h.indexes

/-- The step leaves every row at the index before its number. -/
def KeepsPaths (p : Platform) (e : Ethernet) : RowOp → Prop
  | .addEntry allocated _ =>
    allocated = true → ∀ row next, initEthIfaceEntry p e = some (row,next) →
      let added := p.ifName e.ports.ulTotalNoofEthInterfaces
      (∀ i, FirstAt e.ports.names row.name.text i → row.ulInstanceNumber = i+1) ∧
        (added.text ∉ e.ports.names → ∀ r ∈ row :: e.qEthList, r.name = added →
          r.ulInstanceNumber = e.ports.ulTotalNoofEthInterfaces+1)
  | .delEntry ins _ =>
    ∀ row, e.row ins = some row → row.enable = false →
      ∀ i, FirstAt e.ports.names row.name.text i → p.totalNumberOfInternalInterfaces ≤ i →
        ∀ last ∈ e.ports.records.getLast?, ∀ memory ∈ e.ports.records[i]?,
          i+1 < e.ports.records.length →
          ∀ r ∈ e.qEthList, r.name.text = (memory.name.strncpy last.name.text).text →
            ∃ k, k ≤ i ∧ FirstAt e.ports.names r.name.text k
  | .setString ins .name pString =>
    ∀ row, e.row ins = some row → pString ∉ e.ports.names →
      ∀ i, FirstAt e.ports.names row.name.text i → ∀ record ∈ e.ports.records[i]?,
        let name := (record.name.strncpy pString).text
        (∀ r ∈ e.qEthList, r.ulInstanceNumber ≠ ins → r.name.text = name →
          ∃ k, k < i ∧ FirstAt e.ports.names name k) ∧
        (63 < pString.length → name = row.name.text ∨
          row.name.text ∉ e.ports.names.set i name)
  | .setString _ .lowerLayers _ => True

def RowOp.reallocates : RowOp → Prop
  | .addEntry _ reallocated => reallocated = true
  | .delEntry _ reallocated => reallocated = true
  | .setString _ _ _ => True

theorem PathsKept.addEntry {p : Platform} {e : Ethernet} {recs : List PortRecord}
    (h : PathsKept e recs) {allocated reallocated : Bool} (hre : reallocated = true)
    (hc : KeepsPaths p e (.addEntry allocated reallocated)) :
    ∃ recs', PathsKept (ethRdkInterfaceAddEntry p allocated reallocated e).2 recs' := by
  subst hre
  unfold ethRdkInterfaceAddEntry
  cases allocated with
  | false => exact ⟨recs,h⟩
  | true =>
    cases hinit : initEthIfaceEntry p e with
    | none => exact ⟨recs,by simpa [hinit] using h⟩
    | some q =>
      obtain ⟨row,next⟩ := q
      obtain ⟨hold,hnew⟩ := hc rfl row next hinit
      have hul := total_of_counted h.counted
      rw [h.names] at hold hnew
      rw [hul] at hnew
      have hpush := perm_pushEntry row e.qEthList
      refine ⟨recs ++ [addedRecord p recs],?_,?_,?_⟩
      · simp [h.counted,update_add]
      · have hfresh : ∀ r ∈ e.qEthList, r.ulInstanceNumber ≠ row.ulInstanceNumber := by
          simp only [initEthIfaceEntry,Option.map_eq_some_iff,Prod.mk.injEq] at hinit
          obtain ⟨n,hn,rfl,-⟩ := hinit
          exact freeInstance_fresh hn
        refine (hpush.map _).nodup_iff.mpr (List.nodup_cons.mpr ⟨fun hm => ?_,h.instances⟩)
        obtain ⟨r,hr,hins⟩ := List.mem_map.mp hm
        exact hfresh r hr hins
      · intro r hr i hfirst
        rw [recordNames_addedRecord,firstAt_concat_iff] at hfirst
        have hr := hpush.mem_iff.mp hr
        rcases hfirst with hfirst | ⟨rfl,hname,hnot⟩
        · rcases List.mem_cons.mp hr with rfl | hr
          · exact hold i hfirst
          · exact h.indexes r hr i hfirst
        · rw [hname] at hnot
          have hins := hnew hnot r hr (Buf.ext_text hname)
          simpa [recordNames] using hins

/-- A name found after the last record has moved to index `i` was found there before,
unless it is the one that the moved record has now. -/
theorem firstAt_of_moved {recs : List PortRecord} {x : Text} {i j : Nat}
    (hne : (recordNames recs)[i]? ≠ some x)
    (hmoved : ∀ last ∈ recs.getLast?, ∀ memory ∈ recs[i]?, i+1 < recs.length →
      x = (memory.name.strncpy last.name.text).text → ∃ k, k < i ∧ FirstAt (recordNames recs) x k)
    (h : FirstAt (recordNames (swapRemoveBy copyRecord recs i)) x j) :
    FirstAt (recordNames recs) x j := by
  rcases List.eq_nil_or_concat' recs with rfl | ⟨l,last,rfl⟩
  · exact h
  · have hnames : recordNames (l ++ [last]) = recordNames l ++ [last.name.text] := by
      simp [recordNames]
    have hlen : (recordNames l).length = l.length := by simp [recordNames]
    rw [hnames] at hne hmoved ⊢
    rw [firstAt_concat_iff]
    refine .inl ?_
    by_cases hi : i < l.length
    · have hm : l[i]? = some l[i] := List.getElem?_eq_getElem hi
      rw [List.getElem?_append_left (by omega)] at hne
      rw [recordNames_moved hm] at h
      by_cases hx : x = (l[i].name.strncpy last.name.text).text
      · obtain ⟨k,hk,hkfirst⟩ := hmoved last (by simp) l[i]
          (by rwa [List.getElem?_append_left hi]) (by simpa using hi) hx
        have hold := (firstAt_concat_iff.mp hkfirst).resolve_right fun hk' => by omega
        rw [← hx] at h
        rcases (firstAt_set_self_iff (by omega)).mp h with ⟨-,hj⟩ | ⟨rfl,hbefore⟩
        · exact hj
        · exact absurd hold.1 (hbefore k hk)
      · exact (firstAt_set_of_ne hx hne).mp h
    · rwa [swapRemoveBy_concat,List.modify_eq_self (by omega)] at h

theorem PathsKept.delEntry {p : Platform} {e : Ethernet} {recs : List PortRecord}
    (h : PathsKept e recs) {ins : Nat} {reallocated : Bool} (hre : reallocated = true)
    (hc : KeepsPaths p e (.delEntry ins reallocated)) :
    ∃ recs', PathsKept (ethRdkInterfaceDelEntry p reallocated e ins).2 recs' := by
  subst hre
  unfold ethRdkInterfaceDelEntry
  cases hrow : e.row ins with
  | none => exact ⟨recs,h⟩
  | some row =>
    cases hen : row.enable with
    | true => exact ⟨recs,by simpa [hen] using h⟩
    | false =>
      by_cases href : ∀ i, cosaDmlEthPortGetIndexFromIfName e.ports (some row.name.text) =
          some i → i < p.totalNumberOfInternalInterfaces
      · have heq := update_del_refused p true href
        exact ⟨recs,by simpa [hen,heq] using h⟩
      · simp only [not_forall,Nat.not_lt] at href
        obtain ⟨i,hi,hp⟩ := href
        have hfirst := (getIndexFromIfName_eq_some_iff _ _ _).mp hi
        have hmoved := hc row hrow hen i hfirst hp
        rw [h.names] at hfirst hmoved
        rw [h.counted] at hi hmoved
        obtain ⟨l,r,hsplit,-,-,herase⟩ := row_split hrow
        have hrows : (row :: (l ++ r)).Perm e.qEthList := hsplit ▸ List.perm_middle.symm
        have hnodup := (hrows.map EthRow.ulInstanceNumber).nodup_iff.mpr h.instances
        rw [List.map_cons,List.nodup_cons] at hnodup
        simp only [hen,h.counted,update_del p hi hp,herase]
        refine ⟨swapRemoveBy copyRecord recs i,rfl,hnodup.2,fun r' hr' j hj => ?_⟩
        have hmem : r' ∈ e.qEthList := hrows.mem_iff.mp (List.mem_cons_of_mem row hr')
        have hrowmem : row ∈ e.qEthList := hrows.mem_iff.mp List.mem_cons_self
        -- a row named like the deleted one would have its instance number
        have hne : (recordNames recs)[i]? ≠ some r'.name.text := by
          intro hsame
          rw [hfirst.1,Option.some_inj] at hsame
          have hins := h.indexes r' hmem i (hsame ▸ hfirst)
          have hrowins := h.indexes row hrowmem i hfirst
          exact hnodup.1 (List.mem_map.mpr ⟨r',hr',hins.trans hrowins.symm⟩)
        refine h.indexes r' hmem j (firstAt_of_moved hne (fun last hl memory hm hlt hname => ?_) hj)
        obtain ⟨k,hk,hkfirst⟩ := hmoved last hl memory hm hlt r' hmem hname
        rcases Nat.lt_or_eq_of_le hk with hlt' | rfl
        · exact ⟨k,hlt',hkfirst⟩
        · exact absurd hkfirst.1 hne

/-- A new name of one record leaves the other rows the places of their names. -/
theorem PathsKept.index_of_other {e : Ethernet} {recs : List PortRecord} (h : PathsKept e recs)
    {row r : EthRow} (hrow : row ∈ e.qEthList) (hr : r ∈ e.qEthList)
    (hins : r.ulInstanceNumber ≠ row.ulInstanceNumber) {i : Nat}
    (hfirst : FirstAt (recordNames recs) row.name.text i) {name : Text}
    (hbefore : r.name.text = name → ∃ k, k < i ∧ FirstAt (recordNames recs) name k) {j : Nat}
    (hj : FirstAt ((recordNames recs).set i name) r.name.text j) : r.ulInstanceNumber = j+1 := by
  by_cases hsame : r.name.text = name
  · rw [hsame] at hj
    rcases (firstAt_set_self_iff hfirst.lt).mp hj with ⟨-,hj⟩ | ⟨rfl,hnot⟩
    · exact h.indexes r hr j (hsame ▸ hj)
    · obtain ⟨k,hk,hkfirst⟩ := hbefore hsame
      exact absurd hkfirst.1 (hnot k hk)
  · have hne : (recordNames recs)[i]? ≠ some r.name.text := by
      intro hget
      rw [hfirst.1,Option.some_inj] at hget
      exact hins ((h.indexes r hr i (hget ▸ hfirst)).trans (h.indexes row hrow i hfirst).symm)
    exact h.indexes r hr j ((firstAt_set_of_ne hsame hne).mp hj)

theorem PathsKept.setName {p : Platform} {e : Ethernet} {recs : List PortRecord}
    (h : PathsKept e recs) {ins : Nat} {pString : Text}
    (hc : KeepsPaths p e (.setString ins .name pString)) :
    ∃ recs', PathsKept (ethRdkInterfaceSetParamStringValue p e ins .name pString).2 recs' := by
  unfold ethRdkInterfaceSetParamStringValue
  cases hrow : e.row ins with
  | none => exact ⟨recs,h⟩
  | some row =>
    rcases setName_cases recs row.name.text pString with ⟨heq,-⟩ | ⟨i,hfirst,hnew,heq⟩
    · exact ⟨recs,by simpa [h.counted,heq] using h⟩
    · obtain ⟨l,r,hsplit,hrowins,hmod,-⟩ := row_split hrow
      have hrows : (row :: (l ++ r)).Perm e.qEthList := hsplit ▸ List.perm_middle.symm
      have hrowmem : row ∈ e.qEthList := hrows.mem_iff.mp List.mem_cons_self
      have hnodup := (hrows.map EthRow.ulInstanceNumber).nodup_iff.mpr h.instances
      rw [List.map_cons,List.nodup_cons] at hnodup
      obtain ⟨record,hrecord,-⟩ := getElem?_of_firstAt hfirst
      obtain ⟨hothers,hlong⟩ := hc row hrow (h.names ▸ hnew) i (h.names ▸ hfirst) record
        (by rw [h.counted]; exact hrecord)
      rw [h.names] at hothers hlong
      have hnames := recordNames_strncpy hrecord pString
      generalize hname : (record.name.strncpy pString).text = name at hothers hlong hnames
      have hrest : ∀ r' ∈ l ++ r, ∀ j,
          FirstAt ((recordNames recs).set i name) r'.name.text j →
          r'.ulInstanceNumber = j+1 := by
        intro r' hr' j hj
        have hmem : r' ∈ e.qEthList := hrows.mem_iff.mp (List.mem_cons_of_mem row hr')
        have hins : r'.ulInstanceNumber ≠ row.ulInstanceNumber := fun heq =>
          hnodup.1 (List.mem_map.mpr ⟨r',hr',heq⟩)
        exact h.index_of_other hrowmem hmem hins hfirst (hothers r' hmem (hrowins ▸ hins)) hj
      have hpos := h.indexes row hrowmem i hfirst
      simp only [h.counted,heq,if_true]
      by_cases hlen : pString.length ≤ 63
      · have hstore : (Buf.store pString : Buf 64).text = pString :=
          Buf.store_text_of_lt (by omega)
        simp only [hlen,if_true,hmod]
        have hrows' : (l ++ { row with name := Buf.store pString } :: r).Perm
            ({ row with name := Buf.store pString } :: (l ++ r)) := List.perm_middle
        refine ⟨_,rfl,?_,fun r' hr' j hj => ?_⟩
        · exact (hrows'.map EthRow.ulInstanceNumber).nodup_iff.mpr
            (List.nodup_cons.mpr hnodup)
        · rw [hnames] at hj
          rcases List.mem_cons.mp (hrows'.mem_iff.mp hr') with rfl | hr'
          · rw [hstore] at hj
            exact hj.eq_of_set hnew ▸ hpos
          · exact hrest r' hr' j hj
      · simp only [hlen,if_false]
        refine ⟨_,rfl,h.instances,fun r' hr' j hj => ?_⟩
        rw [hnames] at hj
        rcases List.mem_cons.mp (hrows.mem_iff.mpr hr') with rfl | hr'
        · rcases hlong (by omega) with hsame | hnot
          · rw [hsame] at hj
            rcases (firstAt_set_self_iff hfirst.lt).mp hj with ⟨-,hj⟩ | ⟨rfl,-⟩
            · exact h.indexes r' hrowmem j hj
            · exact hpos
          · exact absurd hj.mem hnot
        · exact hrest r' hr' j hj

theorem PathsKept.setLowerLayers {p : Platform} {e : Ethernet} {recs : List PortRecord}
    (h : PathsKept e recs) (ins : Nat) (pString : Text) :
    ∃ recs', PathsKept
      (ethRdkInterfaceSetParamStringValue p e ins .lowerLayers pString).2 recs' := by
  unfold ethRdkInterfaceSetParamStringValue
  cases hrow : e.row ins with
  | none => exact ⟨recs,h⟩
  | some row =>
    obtain ⟨ok,recs',heq,hnames⟩ := setLowerLayers_cases p recs row.name.text pString
    obtain ⟨l,r,hsplit,-,hmod,-⟩ := row_split hrow
    have hins : (l ++ { row with lowerLayers := Buf.store pString } :: r).map
        EthRow.ulInstanceNumber = e.qEthList.map EthRow.ulInstanceNumber := by
      rw [hsplit]; simp
    simp only [h.counted,heq]
    cases ok with
    | false => exact ⟨recs,by simpa using h⟩
    | true =>
      by_cases hlen : pString.length < 127
      · simp only [hlen,if_true,hmod]
        refine ⟨recs',rfl,by rw [hins]; exact h.instances,fun r' hr' i hi => ?_⟩
        rw [hnames] at hi
        rcases List.mem_append.mp hr' with hl | hr
        · exact h.indexes r' (hsplit ▸ List.mem_append_left _ hl) i hi
        · rcases List.mem_cons.mp hr with rfl | hr
          · exact h.indexes row (hsplit ▸ List.mem_append_right _ List.mem_cons_self) i hi
          · exact h.indexes r'
              (hsplit ▸ List.mem_append_right _ (List.mem_cons_of_mem _ hr)) i hi
      · simp only [hlen,if_true,if_false]
        exact ⟨recs',rfl,h.instances,by rw [hnames]; exact h.indexes⟩

theorem PathsKept.rowOp {p : Platform} {e : Ethernet} {recs : List PortRecord}
    (h : PathsKept e recs) {op : RowOp} (hre : op.reallocates) (hc : KeepsPaths p e op) :
    ∃ recs', PathsKept (rowOp p e op) recs' := by
  cases op with
  | addEntry allocated reallocated => exact h.addEntry hre hc
  | delEntry ins reallocated => exact h.delEntry hre hc
  | setString ins paramName pString =>
    cases paramName with
    | name => exact h.setName hc
    | lowerLayers => exact h.setLowerLayers ins pString

theorem PathsKept.keeps_of_addEntry {p : Platform} {e : Ethernet} {recs : List PortRecord}
    (h : PathsKept e recs) {allocated reallocated : Bool} (hre : reallocated = true)
    (hafter : PathsAgree (ethRdkInterfaceAddEntry p allocated reallocated e).2) :
    KeepsPaths p e (.addEntry allocated reallocated) := by
  subst hre
  intro ha row next hinit
  subst ha
  have hul := total_of_counted h.counted
  have hlen : (recordNames recs).length = recs.length := by simp [recordNames]
  have hpush := perm_pushEntry row e.qEthList
  have hnames := (names_of_counted rfl).trans (recordNames_addedRecord p recs)
  simp only [ethRdkInterfaceAddEntry,hinit,if_true] at hafter
  rw [h.counted,update_add,pathsAgree_iff,hnames] at hafter
  rw [h.names,hul]
  refine ⟨fun i hi => ?_,fun hnot r hr hname => ?_⟩
  · exact hafter row (hpush.mem_iff.mpr List.mem_cons_self) i (firstAt_concat_iff.mpr (.inl hi))
  · have hins := hafter r (hpush.mem_iff.mpr hr) recs.length
      (firstAt_concat_iff.mpr (.inr ⟨hlen.symm,by rw [hname],by rw [hname]; exact hnot⟩))
    exact hins

theorem PathsKept.keeps_of_delEntry {p : Platform} {e : Ethernet} {recs : List PortRecord}
    (h : PathsKept e recs) {ins : Nat} {reallocated : Bool} (hre : reallocated = true)
    (hafter : PathsAgree (ethRdkInterfaceDelEntry p reallocated e ins).2) :
    KeepsPaths p e (.delEntry ins reallocated) := by
  subst hre
  intro row hrow hen i hfirst hp last hlast memory hm hlt r' hr' hname
  have hi := (getIndexFromIfName_eq_some_iff _ _ _).mpr hfirst
  rw [h.names] at hfirst ⊢
  rw [h.counted] at hi hlast hm hlt
  obtain ⟨l,r,hsplit,-,-,herase⟩ := row_split hrow
  have hrows : (row :: (l ++ r)).Perm e.qEthList := hsplit ▸ List.perm_middle.symm
  have hnodup := (hrows.map EthRow.ulInstanceNumber).nodup_iff.mpr h.instances
  rw [List.map_cons,List.nodup_cons] at hnodup
  simp only [ethRdkInterfaceDelEntry,hrow,hen,h.counted,update_del p hi hp,herase,if_true,
    Bool.false_eq_true,if_false] at hafter
  rw [pathsAgree_iff,names_of_counted rfl] at hafter
  -- a row of the moved name that is not found before it would have the deleted number
  by_contra hnone
  have hne : row ≠ r' := by
    rintro rfl
    exact hnone ⟨i,Nat.le_refl i,hfirst⟩
  have hmem : r' ∈ l ++ r := (List.mem_cons.mp (hrows.mem_iff.mpr hr')).resolve_left hne.symm
  obtain ⟨before,rfl⟩ := List.getLast?_eq_some_iff.mp hlast
  have hlen : (recordNames before).length = before.length := by simp [recordNames]
  have hil : i < before.length := by simpa using hlt
  have hnames : recordNames (before ++ [last]) = recordNames before ++ [last.name.text] := by
    simp [recordNames]
  have hm' : before[i]? = some memory := by
    rwa [Option.mem_def,PortTable.records_ofRecords,List.getElem?_append_left hil] at hm
  rw [recordNames_moved hm',← hname] at hafter
  have hmoved : FirstAt ((recordNames before).set i r'.name.text) r'.name.text i := by
    refine (firstAt_set_self_iff (by omega)).mpr (.inr ⟨rfl,fun k hk hget => hnone ?_⟩)
    obtain ⟨k',hk'⟩ := exists_firstAt (List.mem_of_getElem? hget)
    refine ⟨k',?_,hnames ▸ firstAt_concat_iff.mpr (.inl hk')⟩
    by_contra hge
    exact hk'.2 k (by omega) hget
  have hrowmem : row ∈ e.qEthList := List.mem_of_find?_eq_some hrow
  have hins := (hafter r' hmem i hmoved).trans (h.indexes row hrowmem i hfirst).symm
  exact hnodup.1 (List.mem_map.mpr ⟨r',hmem,hins⟩)

theorem PathsKept.keeps_of_setName {p : Platform} {e : Ethernet} {recs : List PortRecord}
    (h : PathsKept e recs) {ins : Nat} {pString : Text}
    (hafter : PathsAgree (ethRdkInterfaceSetParamStringValue p e ins .name pString).2) :
    KeepsPaths p e (.setString ins .name pString) := by
  intro row hrow hnew i hfirst record hrecord
  rw [h.names] at hnew hfirst ⊢
  rw [h.counted,PortTable.records_ofRecords] at hrecord
  obtain ⟨l,r,hsplit,hrowins,hmod,-⟩ := row_split hrow
  have hrowmem : row ∈ e.qEthList := List.mem_of_find?_eq_some hrow
  have hpos := h.indexes row hrowmem i hfirst
  obtain ⟨-,hno | hno⟩ | ⟨i',hfirst',-,heq⟩ := setName_cases recs row.name.text pString
  · exact absurd hno hnew
  · exact absurd hfirst.mem hno
  · obtain rfl := hfirst.unique hfirst'
    have hnames := (names_of_counted rfl).trans (recordNames_strncpy hrecord pString)
    simp only [ethRdkInterfaceSetParamStringValue,hrow,h.counted,heq,if_true] at hafter
    refine ⟨fun r' hr' hins hname => ?_,fun hlong => ?_⟩
    · by_contra hnone
      have hmoved : FirstAt ((recordNames recs).set i (record.name.strncpy pString).text)
          r'.name.text i := by
        rw [hname]
        refine (firstAt_set_self_iff hfirst.lt).mpr (.inr ⟨rfl,fun m hm hget => hnone ?_⟩)
        obtain ⟨k,hk⟩ := exists_firstAt (List.mem_of_getElem? hget)
        refine ⟨k,?_,hk⟩
        by_contra hge
        exact hk.2 m (by omega) hget
      have hafter' : r'.ulInstanceNumber = i+1 := by
        split at hafter
        · rw [pathsAgree_iff,hnames,hmod] at hafter
          refine hafter r' ?_ i hmoved
          rw [hsplit] at hr'
          rcases List.mem_append.mp hr' with hl | hr
          · exact List.mem_append_left _ hl
          · rcases List.mem_cons.mp hr with rfl | hr
            · exact absurd hrowins hins
            · exact List.mem_append_right _ (List.mem_cons_of_mem _ hr)
        · rw [pathsAgree_iff,hnames] at hafter
          exact hafter r' hr' i hmoved
      exact hins (hafter'.trans (hpos.symm.trans hrowins))
    · rw [if_neg (by omega),pathsAgree_iff,hnames] at hafter
      by_contra hboth
      rw [not_or,not_not] at hboth
      obtain ⟨j,hj⟩ := exists_firstAt hboth.2
      have hins := hafter row hrowmem j hj
      have hji : j = i := by omega
      subst hji
      have hget := hj.1
      rw [List.getElem?_set_self hfirst.lt,Option.some_inj] at hget
      exact hboth.1 hget

theorem PathsKept.keeps_of_pathsAgree {p : Platform} {e : Ethernet} {recs : List PortRecord}
    (h : PathsKept e recs) {op : RowOp} (hre : op.reallocates)
    (hafter : PathsAgree (EthAgent.rowOp p e op)) : KeepsPaths p e op := by
  cases op with
  | addEntry allocated reallocated => exact h.keeps_of_addEntry hre hafter
  | delEntry ins reallocated => exact h.keeps_of_delEntry hre hafter
  | setString ins paramName pString =>
    cases paramName with
    | name => exact h.keeps_of_setName hafter
    | lowerLayers => trivial

theorem pathsKept_init {p : Platform} {c : PortConfig} (ha : c.Allocates p) (hn : c.Named p) :
    PathsKept (cosaDmlEthPortInit p c) ((List.range (c.total p)).map (initRecord p c)) := by
  obtain ⟨hports,hrows⟩ := init_of_allocates ha
  refine ⟨hports,?_,fun r hr j hj => ?_⟩
  · refine (hrows.map EthRow.ulInstanceNumber).nodup_iff.mpr ?_
    rw [List.map_map]
    exact List.Nodup.map_on (fun i _ j _ hij => Nat.succ.inj hij) List.nodup_range
  · obtain ⟨i,hi,rfl⟩ := List.mem_map.mp (hrows.mem_iff.mp hr)
    have hjl : j < c.total p := by simpa [recordNames] using hj.lt
    have hget := hj.1
    simp only [recordNames,List.getElem?_map,List.getElem?_range hjl,Option.map_some,
      Option.some_inj] at hget
    rw [initRecord_name (hn.plain j hjl)] at hget
    exact congrArg (·+1) (hn.distinct j hjl i (List.mem_range.mp hi) (Buf.ext_text hget)).symm

/-- Along a run in which the global table is always reallocated, the paths agree
exactly as long as every step leaves the rows at the indexes of their names. -/
theorem paths_agree_iff {p : Platform} {c : PortConfig} (ha : c.Allocates p)
    (hn : c.Named p) (ops : List RowOp) (hre : ∀ op ∈ ops, op.reallocates) :
    Always (rowOp p) PathsAgree (cosaDmlEthPortInit p c) ops ↔
      Meets (rowOp p) (KeepsPaths p) (cosaDmlEthPortInit p c) ops :=
  always_iff_meets_on (J := fun e => ∃ recs, PathsKept e recs) hre ⟨_,pathsKept_init ha hn⟩
    (fun _ _ hre ⟨_,h⟩ hc => h.rowOp hre hc) (fun _ ⟨_,h⟩ => h.pathsAgree)
    (fun _ _ hre ⟨_,h⟩ hafter => h.keeps_of_pathsAgree hre hafter)

theorem paths_agree_iff_four_ports :
    Always (rowOp fourPorts) PathsAgree (cosaDmlEthPortInit fourPorts unconfigured)
        [.addEntry true true,.setString 5 .name "wan0".toList,.delEntry 5 true] ↔
      Meets (rowOp fourPorts) (KeepsPaths fourPorts)
        (cosaDmlEthPortInit fourPorts unconfigured)
        [.addEntry true true,.setString 5 .name "wan0".toList,.delEntry 5 true] :=
  paths_agree_iff unconfigured_allocates unconfigured_named _
    (by simp [RowOp.reallocates])

/-- After row 5 is deleted, row 6 is announced with the path of row 5. -/
theorem moved_record_changes_path :
    ¬ PathsAgree (exec (rowOp fourPorts) (cosaDmlEthPortInit fourPorts unconfigured)
      [.addEntry true true,.addEntry true true,.delEntry 5 true]) := by
  intro h
  have hfirst := (getIndexFromIfName_eq_some_iff (exec (rowOp fourPorts)
    (cosaDmlEthPortInit fourPorts unconfigured)
    [.addEntry true true,.addEntry true true,.delEntry 5 true]).ports "eth5".toList 4).mp
      (by decide +kernel)
  exact absurd ((pathsAgree_iff _).mp h (newRow 6) (by decide +kernel) 4 hfirst)
    (by decide +kernel)

end EthAgent
